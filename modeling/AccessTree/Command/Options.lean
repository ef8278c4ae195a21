import AccessTree.Text.Numeral

/-! # Command line options

The command takes the name of one file and options without arguments. A long option may be
abbreviated as long as it is clear which one is meant, short options may share a hyphen, and after
`--` nothing is an option any more. `Command.parse` reads the arguments. -/

namespace AccessTree.Command

/-- The options. -/
inductive Flag where
  | help
  | strict
  | canonical
  | verbose
  deriving DecidableEq, Repr

/-- What a run is asked to do. -/
structure Options where
  /-- The name of the file, or `-` for the standard input. -/
  source : String
  strict : Bool
  canonical : Bool
  verbose : Bool
  deriving DecidableEq, Repr

/-- **What the arguments ask for.** -/
inductive Request where
  | run (options : Options)
  | help
  /-- The arguments cannot be understood. -/
  | misuse
  deriving DecidableEq, Repr

/-- The names of the options. -/
def flagNames : List (String × Flag) :=
  [("-h", .help), ("--help", .help), ("--strict", .strict), ("--canonical", .canonical),
    ("-v", .verbose), ("--verbose", .verbose)]

/-! ### Single arguments -/

/-- What one argument is. -/
inductive Token where
  | operand (s : String)
  | flags (fs : List Flag)
  /-- The end of the options. -/
  | separator
  /-- An option of no known name, perhaps behind known ones. -/
  | unknown (fs : List Flag)
  /-- An option with an argument that it does not take. -/
  | overloaded
  /-- The abbreviation of several options. -/
  | ambiguous
  deriving DecidableEq, Repr

/-- Whether characters are a negative number. -/
def isNegativeNumber : List Char → Bool
  | '-' :: cs =>
    let isDigit (c : Char) := (Text.digitValue? c).isSome
    (Text.lineDigits? cs).isSome ||
      (match cs.dropWhile isDigit with
        | '.' :: fraction => (Text.lineDigits? fraction).isSome
        | _ => false)
  | _ => false

/-- The options of the names that pass a test. -/
def flagsWhere (test : String → Bool) : List Flag :=
  (flagNames.filter fun (name, _) => test name).map Prod.snd

/-- The option of a single letter. -/
def letterFlag? (c : Char) : Option Flag := flagNames.lookup (String.ofList ['-', c])

/-- The argument with one more option in front. -/
def Token.behind (f : Flag) : Token → Token
  | .flags fs => .flags (f :: fs)
  | .unknown fs => .unknown (f :: fs)
  | t => t

/-- A short option that shares its hyphen with the letters that follow. -/
def shortFlags (f : Flag) : List Char → Token
  | [] => .flags [f]
  | '=' :: _ => .overloaded
  | '-' :: _ => .overloaded
  | c :: rest =>
    match letterFlag? c with
    | none => .unknown [f]
    | some g => (shortFlags g rest).behind f

/-- An argument that is no name of an option, if it is no abbreviation either. -/
def unnamed (s : String) : Token :=
  if isNegativeNumber s.toList || s.toList.contains ' ' then .operand s else .unknown []

/-- The abbreviation of a long option, perhaps with an argument. -/
def abbreviated (s : String) : Token :=
  let name := String.ofList (s.toList.takeWhile (· ≠ '='))
  match flagsWhere fun full => name.toList.isPrefixOf full.toList with
  | [] => unnamed s
  | [f] => if name = s then .flags [f] else .overloaded
  | _ => .ambiguous

/-- An argument that starts with a hyphen and has more than that. -/
def optionLike (s : String) : Token :=
  match flagNames.lookup s with
  | some f => .flags [f]
  | none =>
    match s.toList with
    | '-' :: '-' :: _ => abbreviated s
    | '-' :: c :: more => (letterFlag? c).elim (unnamed s) fun f => shortFlags f more
    | _ => .operand s

/-- What an argument before the separator is. -/
def token (s : String) : Token :=
  match s.toList with
  | '-' :: _ :: _ => if s = "--" then .separator else optionLike s
  | _ => .operand s

/-- What the arguments are, one by one. -/
def tokens : List String → List Token
  | [] => []
  | s :: rest =>
    match token s with
    | .separator => .separator :: rest.map .operand
    | t => t :: tokens rest

/-! ### All arguments -/

/-- Whether the options ask for help before one of them turns out to be overloaded; `none` if
neither is the case. -/
def helpFirst? : List Token → Option Bool
  | [] => none
  | .overloaded :: _ => some false
  | .flags fs :: rest | .unknown fs :: rest =>
    if fs.contains .help then some true else helpFirst? rest
  | _ :: rest => helpFirst? rest

/-- The operand if there is exactly one, to which a separator is adjacent. -/
def operand? : List Token → Option String
  | [] => none
  | .flags _ :: rest => operand? rest
  | [.separator, .operand s] => some s
  | [.operand s, .separator] => some s
  | .operand s :: rest =>
    if rest.all (fun | .flags _ => true | _ => false) then some s else none
  | _ => none

/-- Whether an option is among the tokens. -/
def has (f : Flag) (ts : List Token) : Bool :=
  ts.any fun | .flags fs => fs.contains f | _ => false

/-- **What the arguments ask for.** -/
def parse (arguments : List String) : Request :=
  let ts := tokens arguments
  if ts.contains .ambiguous then .misuse
  else
    match helpFirst? ts with
    | some true => .help
    | some false => .misuse
    | none =>
      match operand? ts with
      | some source => .run ⟨source, has .strict ts, has .canonical ts, has .verbose ts⟩
      | none => .misuse

/-! ### Texts -/

/-- How the command is called. -/
def usage : String := "usage: condition-compile [-h] [--strict] [--canonical] [-v] file\n"

/-- The help text. -/
def helpText : String :=
  usage ++ "
Compile a block-tree JSON file into a condition document

positional arguments:
  file           Block tree JSON file, or - for stdin

options:
  -h, --help     show this help message and exit
  --strict       Fail on incomplete conditions instead of dropping them
  --canonical    Print sorted-key compact JSON followed by its SHA-256
                 fingerprint
  -v, --verbose  Log dropped conditions
"

end AccessTree.Command
