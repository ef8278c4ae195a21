import AccessTree.Json.Basic

/-! # The nesting of JSON text

`Json.deeper?` finds where JSON text first nests deeper than a limit. Brackets and braces count
unless they stand in a string; a string ends at the first quote that no backslash stands before. The
text need not be well-formed after that place. -/

namespace AccessTree.Json

/-- What part of JSON text a character stands in. -/
inductive Part where
  | structural
  | quoted
  /-- The character after a backslash in a string. -/
  | escaped
  deriving DecidableEq, Repr

namespace Part

/-- The part after a character. -/
def next : Part → Char → Part
  | .structural, c => if c = '"' then .quoted else .structural
  | .quoted, c => if c = '"' then .structural else if c = '\\' then .escaped else .quoted
  | .escaped, _ => .quoted

end Part

/-- Whether a character opens an array or an object. -/
def isOpening (c : Char) : Bool := c = '[' || c = '\x7b'

/-- Whether a character closes an array or an object. -/
def isClosing (c : Char) : Bool := c = ']' || c = '\x7d'

/-- The offset of the first character that opens more than `room` levels. -/
def deeperFrom? (part : Part) (depth room : Nat) : List Char → Option Nat
  | [] => none
  | c :: cs =>
    let rest := fun d r => (deeperFrom? (part.next c) d r cs).map (· + 1)
    if part = .structural && isOpening c then
      match room with
      | 0 => some 0
      | r + 1 => rest (depth + 1) r
    else if part = .structural && isClosing c then
      match depth with
      | 0 => rest 0 room
      | d + 1 => rest d (room + 1)
    else rest depth room

/-- **Where JSON text nests deeper than `limit` levels.** -/
def deeper? (limit : Nat) (cs : List Char) : Option Nat := deeperFrom? .structural 0 limit cs

end AccessTree.Json
