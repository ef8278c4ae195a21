import AccessTree.Command.Options
import AccessTree.Compile.Tree
import AccessTree.Json.Canonical
import AccessTree.Settings
import AccessTree.Text.Newline
import AccessTree.Workspace

/-! # Running the command

The command reads a workspace and writes the condition that it compiles to, for display or in the
canonical form with its fingerprint; nothing is written if there is no condition. A problem is
reported with its details, one a line. A breakdown is no answer of the command. -/

namespace AccessTree.Command

/-- Why the text of a workspace cannot be had. -/
inductive SourceFault where
  /-- The file cannot be read, for a reason that the system gives. -/
  | unreadable (reason : String)
  /-- The name of the file holds a character that no name may hold. -/
  | badName
  deriving DecidableEq

/-- **What a run of the command answers.** -/
structure Report where
  exitCode : Nat
  output : String
  errors : String
  warnings : List Warning

/-- The failure to read a source. -/
def SourceFault.toFailure (source : String) : SourceFault → Failure
  | .unreadable reason =>
    .problem ⟨.validation, "Cannot read " ++ source ++ ": " ++ reason, [("source", .str source)]⟩
  | .badName => .breakdown .value "embedded null byte"

/-- The failure to read JSON text. -/
def readFailure (content : List Char) : Json.ReadFault → Failure
  | .malformed cause offset =>
    let (line, column) := Text.lineAndColumn (content.take offset)
    .problem ⟨.validation, "Input is not valid JSON: " ++ cause.message,
      [("line", .nat line), ("column", .nat column)]⟩
  | .numeral f => f.toFailure

/-- The blocks in the text of a workspace. -/
def blocksIn (source : String) (content : Except SourceFault String) :
    Except Failure (List Block) := do
  let text ← content.mapError (SourceFault.toFailure source)
  let v ← (Json.read text).mapError (readFailure text.toList)
  (Workspace.read v).mapError WorkspaceFault.toFailure

/-- The line about a detail, if it can be written. -/
def detailText (detail : String × Json) : Except NumeralFault String := do
  return "   " ++ detail.1 ++ ": " ++ (← detail.2.writeShown) ++ "\n"

/-- The lines about a problem, if they can be written. -/
def problemText (p : Problem) : Except NumeralFault String := do
  let details ← p.details.mapM detailText
  return "[ERROR] " ++ p.category.name ++ ": " ++ p.message ++ "\n" ++ String.join details

/-- The lines about a condition, if they can be written. -/
def conditionText (canonical : Bool) (c : Condition) : Except NumeralFault String := do
  let document := c.toDocument
  if canonical then
    return (← document.writeCanonical) ++ "\n" ++ (← document.writeFingerprint) ++ "\n"
  else return (← document.writeDisplayed) ++ "\n"

/-- The report about a failure, unless it is a breakdown or ends in one. -/
def reportFailure (warnings : List Warning) : Failure → Except Failure Report
  | .problem p => do
    let errors ← (problemText p).mapError NumeralFault.toFailure
    return ⟨2, "", errors, warnings⟩
  | f => .error f

/-- The report about a condition, or that there is none. -/
def reportCondition (canonical : Bool) (warnings : List Warning) (c : Option Condition) :
    Except Failure Report := do
  let texts ← (c.mapM (conditionText canonical)).mapError NumeralFault.toFailure
  return ⟨0, texts.getD "", "", warnings⟩

/-- **Runs the command** on the content of its source; a breakdown is returned as it is. -/
def run (settings : Settings) (options : Options) (content : Except SourceFault String) :
    Except Failure Report :=
  match blocksIn options.source content with
  | .error f => reportFailure [] f
  | .ok blocks =>
    let outcome := Compile.workspace ⟨options.strict || settings.strict, settings.fallback⟩ blocks
    match outcome.result with
    | .error f => reportFailure outcome.warnings f.toFailure
    | .ok c => reportCondition options.canonical outcome.warnings c

end AccessTree.Command
