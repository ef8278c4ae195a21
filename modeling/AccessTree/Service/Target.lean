import AccessTree.Json.Reader

/-! # Request targets

The target of a request is a path and a query. In a path, a percent sign and two hexadecimal digits
stand for a byte of UTF-8. A query is a list of named texts, and of several texts with one name the
last one counts. -/

namespace AccessTree

/-- **What a request is directed at.** -/
structure Target where
  path : String
  query : List (String × String)
  deriving DecidableEq, Repr

namespace Target

/-- The bytes of characters in which percent signs stand for bytes. -/
def unescapedBytes : List Char → List Nat
  | '%' :: a :: b :: cs =>
    match Json.hexValue? a, Json.hexValue? b with
    | some x, some y => (16 * x + y) :: unescapedBytes cs
    | _, _ => Text.encodeChar '%' ++ unescapedBytes (a :: b :: cs)
  | c :: cs => Text.encodeChar c ++ unescapedBytes cs
  | [] => []

/-- The text that an escaped text stands for. -/
def unescape (s : String) : String :=
  String.ofList (Text.decodeUtf8 (unescapedBytes s.toList))

/-- **The target** with an escaped path. -/
def ofEscaped (path : String) (query : List (String × String)) : Target := ⟨unescape path, query⟩

/-- The text of a name in the query. -/
def parameter? (t : Target) (name : String) : Option String := t.query.reverse.lookup name

/-- Whether an address cannot contain a character, which is then left out of it. -/
def isOmitted (c : Char) : Bool := c = '\t' || c = '\n' || c = '\r'

/-- The path as it is counted: what is the path when it is read as part of a whole address. There,
the path starts with a slash and ends before a query or fragment. -/
def countedPath (t : Target) : String :=
  let whole := t.path.toList.takeWhile fun c => c ≠ '?' && c ≠ '#'
  String.ofList ((whole.dropWhile (· ≠ '/')).filter (!isOmitted ·))

end Target

end AccessTree
