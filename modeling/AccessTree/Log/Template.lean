import AccessTree.Binary64.Places
import AccessTree.Json.Shown
import AccessTree.Problem

/-! # Message templates

A message is written as a template with directives, which start with a percent sign: `%s` stands for
the next argument as a message shows it, `%d` for an integer, `%.4f` for a number with four places.
Between the percent sign and the letter of the conversion there may be the key of a named argument,
flags, a width and a precision, in that order. `Template.parse` splits a template into parts in one
pass over its characters, and `Template.fill` writes the parts with the arguments. -/

namespace AccessTree

/-- A width or a precision. -/
inductive Extent where
  | fixed (n : Nat)
  /-- The next argument. -/
  | given
  deriving DecidableEq, Repr

/-- What stands between a percent sign and the letter of a conversion. -/
structure Directive where
  key : Option String := none
  left : Bool := false
  plus : Bool := false
  space : Bool := false
  zero : Bool := false
  alternate : Bool := false
  width : Option Extent := none
  precision : Option Extent := none

/-- A part of a template. -/
inductive TemplatePart where
  | text (c : Char)
  /-- A directive with the letter of its conversion and the place of the letter. -/
  | directive (d : Directive) (conversion : Char) (place : Nat)
  /-- A directive at the end that has no letter. -/
  | unfinished (d : Directive)
  /-- A directive at the end whose key has no end. -/
  | unfinishedKey

/-- Why a template cannot be filled. -/
inductive TemplateFault where
  | tooFewArguments
  | tooManyArguments
  | noMapping
  | noKey (key : String)
  | unfinishedKey
  | unfinished
  | unknownConversion (c : Char) (place : Nat)
  | extentNotInteger
  /-- The conversion asks for an integer, or for a number, and the argument is of another class. -/
  | notInteger (conversion : Char) (found : String)
  | notReal (conversion : Char) (found : String)
  | notNumber (found : String)
  | notCharacter
  | noSuchCharacter
  | nanToInteger
  | infinityToInteger
  | tooLarge
  /-- An integer is too long to be written. -/
  | numeral (fault : NumeralFault)
  deriving DecidableEq

/-- The failure that a fault amounts to. -/
def TemplateFault.toFailure : TemplateFault → Failure
  | .tooFewArguments => .breakdown .type "not enough arguments for format string"
  | .tooManyArguments => .breakdown .type "not all arguments converted during string formatting"
  | .noMapping => .breakdown .type "format requires a mapping"
  | .noKey key => .breakdown .key (Text.quoted key)
  | .unfinishedKey => .breakdown .value "incomplete format key"
  | .unfinished => .breakdown .value "incomplete format"
  | .unknownConversion c place =>
    let shown := if 31 ≤ c.toNat ∧ c.toNat ≤ 126 then c else '?'
    .breakdown .value (String.ofList ("unsupported format character '".toList ++ shown ::
      "' (0x".toList ++ Nat.toDigits 16 c.toNat ++ ") at index ".toList ++ Text.natChars place))
  | .extentNotInteger => .breakdown .type "* wants int"
  | .notInteger c found =>
    .breakdown .type ("%" ++ c.toString ++ " format: an integer is required, not " ++ found)
  | .notReal c found =>
    .breakdown .type ("%" ++ c.toString ++ " format: a real number is required, not " ++ found)
  | .notNumber found => .breakdown .type ("must be real number, not " ++ found)
  | .notCharacter => .breakdown .type "%c requires int or char"
  | .noSuchCharacter => .breakdown .overflow "%c arg not in range(0x110000)"
  | .nanToInteger => .breakdown .value "cannot convert float NaN to integer"
  | .infinityToInteger => .breakdown .overflow "cannot convert float infinity to integer"
  | .tooLarge => .breakdown .overflow "int too large to convert to float"
  | .numeral f => f.toFailure

namespace Template

/-! ### Splitting a template -/

/-- How far a directive has been read. -/
inductive Stage where
  /-- Outside a directive. -/
  | text
  /-- After the percent sign. -/
  | start
  /-- In a key, so many brackets deep, with the characters so far in reverse. -/
  | key (depth : Nat) (rest : List Char)
  | flags
  | width
  /-- After the width. -/
  | point
  /-- After the point. -/
  | precisionStart
  | precision
  /-- After the precision, where one length modifier is passed over. -/
  | modifier
  | conversion

/-- A template that has been read up to some place. -/
structure State where
  /-- The parts so far, in reverse. -/
  parts : List TemplatePart := []
  place : Nat := 0
  stage : Stage := .text
  directive : Directive := {}

/-- A number with one more digit. -/
def grow (e : Option Extent) (d : Nat) : Option Extent :=
  match e with
  | some (.fixed n) => some (.fixed (10 * n + d))
  | _ => some (.fixed d)

namespace State

/-- Ends the directive with the letter of its conversion. -/
def finish (s : State) (c : Char) : State :=
  { s with parts := .directive s.directive c s.place :: s.parts, stage := .text, directive := {} }

/-- Reads a length modifier or the letter of the conversion. -/
def modifier (s : State) (c : Char) : State :=
  if c = 'h' ∨ c = 'l' ∨ c = 'L' then { s with stage := .conversion } else s.finish c

/-- Reads part of a precision, or what follows it. -/
def precision (s : State) (c : Char) : State :=
  match Text.asciiDigit? c with
  | some d => { s with directive.precision := grow s.directive.precision d, stage := .precision }
  | none => s.modifier c

/-- Reads the first character of a precision. -/
def precisionStart (s : State) (c : Char) : State :=
  if c = '*' then { s with directive.precision := some .given, stage := .modifier }
  else s.precision c

/-- Reads the point before a precision, or what follows a width. -/
def point (s : State) (c : Char) : State :=
  if c = '.' then { s with directive.precision := some (.fixed 0), stage := .precisionStart }
  else s.modifier c

/-- Reads part of a width, or what follows it. -/
def width (s : State) (c : Char) : State :=
  match Text.asciiDigit? c with
  | some d => { s with directive.width := grow s.directive.width d, stage := .width }
  | none => s.point c

/-- Reads a flag or the first character of a width. -/
def flag (s : State) (c : Char) : State :=
  let s := { s with stage := .flags }
  match c with
  | '-' => { s with directive.left := true }
  | '+' => { s with directive.plus := true }
  | ' ' => { s with directive.space := true }
  | '#' => { s with directive.alternate := true }
  | '0' => { s with directive.zero := true }
  | '*' => { s with directive.width := some .given, stage := .point }
  | c => s.width c

/-- Reads a character in a key. -/
def inKey (s : State) (depth : Nat) (rest : List Char) (c : Char) : State :=
  if c = ')' ∧ depth = 0 then
    { s with directive.key := some (String.ofList rest.reverse), stage := .flags }
  else if c = ')' then { s with stage := .key (depth - 1) (c :: rest) }
  else if c = '(' then { s with stage := .key (depth + 1) (c :: rest) }
  else { s with stage := .key depth (c :: rest) }

/-- Reads the first character after a percent sign. -/
def start (s : State) (c : Char) : State :=
  if c = '%' then { s with parts := .text '%' :: s.parts, stage := .text }
  else if c = '(' then { s with stage := .key 0 [] }
  else s.flag c

/-- Reads a character outside a directive. -/
def text (s : State) (c : Char) : State :=
  if c = '%' then { s with stage := .start } else { s with parts := .text c :: s.parts }

/-- Reads one character. -/
def step (s : State) (c : Char) : State :=
  let read := match s.stage with
    | .text => s.text c
    | .start => s.start c
    | .key depth rest => s.inKey depth rest c
    | .flags => s.flag c
    | .width => s.width c
    | .point => s.point c
    | .precisionStart => s.precisionStart c
    | .precision => s.precision c
    | .modifier => s.modifier c
    | .conversion => s.finish c
  { read with place := s.place + 1 }

/-- The parts of the whole template. -/
def done (s : State) : List TemplatePart :=
  match s.stage with
  | .text => s.parts.reverse
  | .key .. => (.unfinishedKey :: s.parts).reverse
  | _ => (.unfinished s.directive :: s.parts).reverse

end State

/-- The parts of a template. -/
def parse (s : String) : List TemplatePart := (s.toList.foldl State.step {}).done

/-! ### Arguments -/

/-- The arguments that are left, and the object that named arguments are taken from. -/
structure Arguments where
  rest : List Json
  named : Option Fields

/-- Arguments as they are given: a single object that is not empty names its fields. -/
def Arguments.of : List Json → Arguments
  | [.obj (f :: fields)] => ⟨[.obj (f :: fields)], some (f :: fields)⟩
  | vs => ⟨vs, none⟩

/-- Filling a template. -/
abbrev Fill := StateT Arguments (Except TemplateFault)

/-- The next argument. -/
def next : Fill Json := do
  let a ← get
  match a.rest with
  | [] => throw .tooFewArguments
  | v :: rest => set { a with rest := rest }; return v

/-- Turns to the argument with a key. -/
def select (key : String) : Fill Unit := do
  let a ← get
  match a.named with
  | none => throw .noMapping
  | some fields =>
    match fields.lookup key with
    | none => throw (.noKey key)
    | some v => set { a with rest := [v] }

/-- The number that a width or precision stands for. -/
def extent : Extent → Fill Int
  | .fixed n => return n
  | .given => do
    match ← next with
    | .int n => return n
    | .bool b => return if b then 1 else 0
    | _ => throw .extentNotInteger

/-! ### Conversions -/

/-- Text of a sign, a base mark and digits. -/
structure Numeral where
  negative : Bool
  mark : List Char
  digits : List Char

/-- The sign of a numeral under the flags. -/
def Numeral.sign (n : Numeral) (d : Directive) : List Char :=
  if n.negative then ['-'] else if d.plus then ['+'] else if d.space then [' '] else []

/-- Characters with `fill` before or spaces after them, up to a width. -/
def padded (left : Bool) (width : Nat) (cs : List Char) : List Char :=
  let gap := List.replicate (width - cs.length) ' '
  if left then cs ++ gap else gap ++ cs

/-- A numeral under the flags, up to a width. -/
def Numeral.written (n : Numeral) (d : Directive) (left : Bool) (width : Nat) : List Char :=
  let head := n.sign d ++ n.mark
  if d.zero && !left then
    head ++ List.replicate (width - (head.length + n.digits.length)) '0' ++ n.digits
  else padded left width (head ++ n.digits)

/-- The integer that an argument stands for, if it has to be one or may be any number. -/
def integerOf (conversion : Char) (whole : Bool) : Json → Except TemplateFault Int
  | .int n => .ok n
  | .bool b => .ok (if b then 1 else 0)
  | .float x =>
    if whole then .error (.notInteger conversion (Json.className (.float x)))
    else match x with
      | .nan => .error .nanToInteger
      | .infinite _ => .error .infinityToInteger
      | .finite negative m e _ => .ok (Text.signed negative (m <<< e / Binary64.one))
  | v =>
    .error (if whole then .notInteger conversion v.className else .notReal conversion v.className)

/-- An integer in a base. -/
def integerNumeral (d : Directive) (conversion : Char) (precision : Option Nat) (n : Int) :
    Numeral :=
  let (base, mark) := match conversion with
    | 'o' => (8, ['0', 'o'])
    | 'x' => (16, ['0', 'x'])
    | 'X' => (16, ['0', 'X'])
    | _ => (10, [])
  let digits := Nat.toDigits base n.natAbs
  let digits := if conversion = 'X' then digits.map Char.toUpper else digits
  ⟨decide (n < 0), if d.alternate then mark else [],
    List.replicate (precision.getD 1 - digits.length) '0' ++ digits⟩

/-- The floating point number that an argument stands for. -/
def floatOf : Json → Except TemplateFault Binary64
  | .float x => .ok x
  | .bool b => .ok (.ofRatio false (if b then 1 else 0) 1)
  | .int n =>
    match Binary64.ofRatio (decide (n < 0)) n.natAbs 1 with
    | .infinite _ => .error .tooLarge
    | x => .ok x
  | v => .error (.notNumber v.className)

/-- A floating point number as a numeral. -/
def floatNumeral (d : Directive) (conversion : Char) (precision : Nat) (x : Binary64) : Numeral :=
  let body (m e : Nat) : List Char := match conversion.toLower with
    | 'f' => Binary64.fixedChars precision m e d.alternate
    | 'e' => Binary64.scientificChars precision m e d.alternate
    | _ => Binary64.generalChars precision m e d.alternate
  let (negative, digits) := match x with
    | .nan => (false, ['n', 'a', 'n'])
    | .infinite negative => (negative, ['i', 'n', 'f'])
    | .finite negative m e _ => (negative, body m e)
  ⟨negative, [], if conversion.isUpper then digits.map Char.toUpper else digits⟩

/-- A character, given by itself or by its code point. -/
def characterOf : Json → Except TemplateFault Char
  | .str s =>
    match s.toList with
    | [c] => .ok c
    | _ => .error .notCharacter
  | .int n => if 0 ≤ n ∧ n < 0x110000 then .ok (Char.ofNat n.toNat) else .error .noSuchCharacter
  | .bool b => .ok (Char.ofNat (if b then 1 else 0))
  | _ => .error .notCharacter

/-- Text with escapes for the characters outside ASCII. -/
def asciiChars (cs : List Char) : List Char :=
  cs.flatMap fun c => if c.toNat < 0x80 then [c] else Text.codeEscape c.toNat

/-- How a conversion makes a text of an argument, if it is one of text. -/
def textOf? (conversion : Char) : Option (Json → String) :=
  match conversion with
  | 's' => some Json.shown
  | 'r' => some Json.nested
  | 'a' => some fun v => String.ofList (asciiChars v.nestedChars)
  | _ => none

/-- The integer that a conversion writes, which may be too long in decimal only. -/
def writableInteger (conversion : Char) (v : Json) : Except TemplateFault Int := do
  let hexOrOctal : Bool := conversion ∈ ['o', 'x', 'X']
  let n ← integerOf conversion hexOrOctal v
  if hexOrOctal then return n
  let _ ← (Text.writeInt n).mapError .numeral
  return n

/-- An argument under a directive. -/
def converted (d : Directive) (c : Char) (place : Nat) (left : Bool) (width : Nat)
    (precision : Option Nat) (v : Json) : Except TemplateFault (List Char) :=
  match textOf? c with
  | some text => do
    let cs := (← (v.written text).mapError .numeral).toList
    return padded left width ((precision.map cs.take).getD cs)
  | none =>
    if c ∈ ['d', 'i', 'u', 'o', 'x', 'X'] then
      return (integerNumeral d c precision (← writableInteger c v)).written d left width
    else if c ∈ ['e', 'E', 'f', 'F', 'g', 'G'] then
      return (floatNumeral d c (precision.getD 6) (← floatOf v)).written d left width
    else if c = 'c' then return padded left width [← characterOf v]
    else .error (.unknownConversion c place)

/-! ### Filling a template -/

/-- Takes what a directive asks for before its argument: whether to align to the left, the width and
the precision. -/
def prepare (d : Directive) : Fill (Bool × Nat × Option Nat) := do
  d.key.forM select
  let width ← d.width.mapM extent
  let precision ← d.precision.mapM extent
  return (d.left || decide (width.getD 0 < 0), (width.getD 0).natAbs, precision.map Int.toNat)

/-- The text of one part. -/
def fillPart : TemplatePart → Fill (List Char)
  | .text c => return [c]
  | .unfinishedKey => do
    if (← get).named.isNone then throw .noMapping
    throw .unfinishedKey
  | .unfinished d => do
    let _ ← prepare d
    throw .unfinished
  | .directive d c place => do
    let (left, width, precision) ← prepare d
    let v ← next
    converted d c place left width precision v

/-- The text of all parts, which use all arguments unless these have keys. -/
def fillParts (parts : List TemplatePart) : Fill (List Char) := do
  let text ← parts.mapM fillPart
  let a ← get
  if a.named.isNone ∧ a.rest ≠ [] then throw .tooManyArguments
  return text.flatten

/-- **The text of a template** with its arguments; without arguments there are no directives. -/
def fill (template : String) (arguments : List Json) : Except TemplateFault String :=
  if arguments.isEmpty then .ok template
  else ((fillParts (parse template)).run' (.of arguments)).map String.ofList

end Template

end AccessTree
