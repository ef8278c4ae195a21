import AccessTree.Json.Shown

/-! # Literals

A `Literal` is what a slot or a value block can hold: a text, a number or a truth value. A truth
value and a blank text count as nothing entered; `0` counts as entered. -/

namespace AccessTree

/-- A value that was entered. -/
inductive Literal where
  | text (s : String)
  | int (n : Int)
  | float (x : Binary64)
  | flag (b : Bool)
  deriving DecidableEq

namespace Literal

/-- The literal as a JSON value. -/
def toJson : Literal → Json
  | .text s => .str s
  | .int n => .int n
  | .float x => .float x
  | .flag b => .bool b

/-- The literal that a JSON value is. -/
def ofJson? : Json → Option Literal
  | .str s => some (.text s)
  | .int n => some (.int n)
  | .float x => some (.float x)
  | .bool b => some (.flag b)
  | _ => none

/-- **A literal that can be written.** -/
abbrev Writable := {l : Literal // l.toJson.isWritable = true}

/-- The literal as a message shows it. -/
def shown (l : Literal) : String := l.toJson.shown

/-- The literal as it stands inside a list. -/
def nested (l : Literal) : String := l.toJson.nested

/-- The literal as a message shows it, if it can be written. -/
def writeShown (l : Literal) : Except NumeralFault String := l.toJson.writeShown

/-- Whether a literal counts as something entered. -/
def isEntered : Literal → Bool
  | .text s => !Text.allBlank s
  | .flag _ => false
  | _ => true

end Literal

end AccessTree
