import AccessTree.Settings
import AccessTree.Text.Alphanumeric

/-! # Redaction of details

The details of a problem may quote what a client must not see in production: paths of program files,
objects with their addresses, and traces of calls. There, a text with such a part is replaced as a
whole; keys, numbers, and the order and number of items stay. Texts that are items of a list are not
looked at, only the objects among the items. -/

namespace AccessTree

namespace Redaction

open Text

/-- Whether a character may stand in the path of a file after the first separator. -/
def isPathChar (c : Char) : Bool := isWordChar c || c = '/' || c = '-'

/-- The path of a program file. -/
def filePath : Pattern :=
  [.one fun c => c = '/' || c = '\\', .many isPathChar] ++ Pattern.anyCase ".py"

/-- Whether a character is a hexadecimal digit. -/
def isHexDigit (c : Char) : Bool := c.isDigit || ('a' ≤ c.toLower && c.toLower ≤ 'f')

/-- An object with its address. -/
def objectAddress : Pattern :=
  [.one (· = '<'), .many fun c => isWordChar c || c = '.'] ++ Pattern.anyCase " object at 0x" ++
    [.many isHexDigit, .one (· = '>')]

/-- The head of a trace of calls. -/
def traceHead : Pattern := Pattern.anyCase "traceback (most recent call last)"

/-- Whether a text has a part that a client must not see. -/
def isSensitive (s : String) : Bool :=
  filePath.occursIn s || objectAddress.occursIn s || traceHead.occursIn s

/-- Stands for a text that was removed. -/
def replacement : String := "[REDACTED]"

mutual
/-- The value of a field without sensitive texts. -/
def value : Json → Json
  | .str s => .str (if isSensitive s then replacement else s)
  | .arr items => .arr (listed items)
  | .obj members => .obj (fields members)
  | v => v

/-- The items of a list, of which the objects are without sensitive texts. -/
def listed : List Json → List Json
  | [] => []
  | .obj members :: rest => .obj (fields members) :: listed rest
  | v :: rest => v :: listed rest

/-- Fields without sensitive texts. -/
def fields : List (String × Json) → List (String × Json)
  | [] => []
  | (k, v) :: rest => (k, value v) :: fields rest
end

end Redaction

/-- **The details that a client may see.** -/
def Settings.redacted (s : Settings) (details : Fields) : Fields :=
  if s.deployment = .production then Redaction.fields details else details

end AccessTree
