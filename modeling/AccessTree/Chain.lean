import AccessTree.Literal
import AccessTree.Problem
import AccessTree.Word

/-! # Chains

The chains that conditions can be checked on form a closed set, `ChainId`. `resolve` turns what was
entered in a chain slot into one of them. There is one rule: only if nothing was entered does the
fallback apply, and whatever was entered is a supported chain or a fault, never replaced. -/

namespace AccessTree

/-- The supported chains. -/
inductive ChainId where
  | mainnet
  | polygon
  | amoy
  | sepolia
  deriving DecidableEq, Repr

namespace ChainId

/-- All chains in order. -/
def all : List ChainId := [.mainnet, .polygon, .amoy, .sepolia]

/-- The number of a chain. -/
def number : ChainId → Nat
  | .mainnet => 1
  | .polygon => 137
  | .amoy => 80002
  | .sepolia => 11155111

instance : Word ChainId where
  all := all
  name
    | .mainnet => "ETHEREUM_MAINNET"
    | .polygon => "POLYGON"
    | .amoy => "POLYGON_AMOY"
    | .sepolia => "SEPOLIA"

/-- The chain of a number. -/
def ofNumber? (n : Int) : Option ChainId := all.find? fun c => (c.number : Int) = n

/-- The chain as a JSON value. -/
def toJson (c : ChainId) : Json := .nat c.number

/-- The numbers of all chains. -/
def numbers : Json := .arr (all.map toJson)

/-- The numbers of all chains in words. -/
def numberList : String := ", ".intercalate (all.map fun c => Text.ofNat c.number)

/-- Whether a JSON value is an integer, and the number of a chain. -/
def isNumber : Json → Bool
  | .int n => (ofNumber? n).isSome
  | _ => false

end ChainId

/-- Why no chain can be resolved. -/
inductive ChainFault where
  /-- Something was entered that is no supported chain. -/
  | unsupported (entered : Literal.Writable)
  /-- The numeral that was entered is too long to be read, or to be reported. -/
  | numeral (fault : NumeralFault)
  /-- Nothing was entered, and the number set up as the fallback is no supported chain. -/
  | badFallback (number : Int)
  deriving DecidableEq

namespace Chain

/-- The integer that was entered, if it is one. -/
def enteredInt? : Literal → Except NumeralFault (Option Int)
  | .flag _ => .ok none
  | .int n => .ok (some n)
  | .float x => .ok x.toInt?
  | .text s => Text.readInteger s

/-- Whether nothing was entered in a chain slot. -/
def isOpen : Option Literal → Bool
  | none => true
  | some (.text s) => Text.allBlank s
  | some _ => false

/-- The supported chain that was entered. -/
def entered (raw : Literal) : Except ChainFault ChainId :=
  match enteredInt? raw with
  | .error f => .error (.numeral f)
  | .ok n =>
    match n.bind ChainId.ofNumber? with
    | some c => .ok c
    | none => .error (raw.toJson.faultShowing (fun h => .unsupported ⟨raw, h⟩) .numeral)

/-- **The chain that a slot stands for.** -/
def resolve (fallback : Except ChainFault ChainId) (raw : Option Literal) :
    Except ChainFault ChainId :=
  match raw with
  | none => fallback
  | some l => if isOpen raw then fallback else entered l

/-- The fallback of a number that was set up. -/
def fallbackOf (n : Int) : Except ChainFault ChainId :=
  match ChainId.ofNumber? n with
  | some c => .ok c
  | none => .error (.badFallback n)

end Chain

namespace ChainFault

/-- What a client is told about an entered chain that is not supported. -/
def unsupportedProblem (entered : Literal) : Problem where
  category := .chain
  message := "Invalid chain ID '" ++ entered.shown ++ "'. Must be one of: " ++ ChainId.numberList
  details := [("chain", .str entered.shown), ("valid_chains", ChainId.numbers)]

/-- The failure that a fault amounts to. -/
def toFailure : ChainFault → Failure
  | .unsupported entered => .problem (unsupportedProblem entered)
  | .numeral f => f.toFailure
  | .badFallback n =>
    match Text.writeInt n with
    | .ok number => .breakdown .value (number ++ " is not a valid ChainId")
    | .error f => f.toFailure

end ChainFault

end AccessTree
