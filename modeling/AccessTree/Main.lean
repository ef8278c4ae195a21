import AccessTree.Command.Run

/-! # The command

`condition-compile` compiles the blocks in a JSON file into a condition document. It exits with zero
if there is no problem and with two otherwise. -/

namespace AccessTree.Command

/-- The content of a source. -/
def readSource (source : String) : IO (Except SourceFault String) := do
  try
    let text ← if source = "-" then (← IO.getStdin).readToEnd else IO.FS.readFile source
    return .ok (String.ofList (Text.unifyLineEnds text.toList))
  catch e =>
    match e with
    | .noFileOrDirectory .. => return .error (.unreadable "No such file or directory")
    | .permissionDenied .. => return .error (.unreadable "Permission denied")
    | .inappropriateType .. => return .error (.unreadable "Is a directory")
    | e => return .error (.unreadable (toString e))

/-- The settings that the environment gives. -/
def readSettings : IO (Except SettingsFault Settings) := do
  let environment ← Settings.names.filterMapM fun name => do
    return (← IO.getEnv (name.map Char.toUpper)).map (name, ·)
  return Settings.read environment []

/-- Reports a breakdown or an unusable setting. -/
def abort (message : String) : IO UInt32 := do
  IO.eprintln message
  return 1

/-- Runs the command with some options. -/
def execute (settings : Settings) (options : Options) : IO UInt32 := do
  match run settings options (← readSource options.source) with
  | .ok report =>
    report.warnings.forM fun w => IO.eprintln ("WARNING " ++ w.message)
    IO.print report.output
    IO.eprint report.errors
    return report.exitCode.toUInt32
  | .error (.breakdown kind message) => abort (kind.name ++ ": " ++ message)
  | .error (.problem p) => abort p.message

/-- Runs the command with its arguments. -/
def start (arguments : List String) : IO UInt32 := do
  match ← readSettings with
  | .error (.rejected issues) => abort (Issue.listToJson issues).shown
  | .error (.deployment found) => abort ("No deployment: " ++ found.shown)
  | .ok settings =>
    match parse arguments with
    | .help => IO.print helpText; return 0
    | .misuse => IO.eprint usage; return 2
    | .run options => execute settings options

end AccessTree.Command

/-- The command. -/
def main (arguments : List String) : IO UInt32 := AccessTree.Command.start arguments
