import ServingPlane.CommandLine

/-! # The program

    Reads the settings file that the command line names, prints what the
    command line asks for, and ends with its code. -/

open ServingPlane

/-- What stands at a path. -/
def contentAt (path : String) : IO FileContent := do
  try
    return .text (← IO.FS.readFile path)
  catch
    | .noFileOrDirectory .. => return .absent
    | _ => return .unreadable

/-- The path that a command line reads settings from. -/
def settingsPath (words : List String) : String :=
  match CommandLine.parse words with
  | some (.execute _ path) => path
  | _ => CommandLine.defaultPath

def main (words : List String) : IO UInt32 := do
  let path := settingsPath words
  let content ← contentAt path
  let values ← Settings.overrides.mapM fun o => return (o.variableName, ← IO.getEnv o.variableName)
  let ending := CommandLine.outcome (fun p => if p = path then content else .absent)
    (fun name => (values.lookup name).join) words
  IO.print ending.output
  return ending.exitCode.toUInt32
