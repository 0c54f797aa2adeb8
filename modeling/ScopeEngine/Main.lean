import ScopeEngine.CommandLine.Program

/-!
The executable: reads the configuration file if there is one, and prints what the program has to say.
-/

namespace ScopeEngine.CommandLine

def readContents (path : String) : IO (Except Config.ReadFailure ByteArray) := do
  try
    return .ok (← IO.FS.readBinFile path)
  catch error =>
    match error with
    | .noFileOrDirectory .. => return .error .notFound
    | .inappropriateType .. => return .error .isDirectory
    | other => return .error (.other (toString other))

end ScopeEngine.CommandLine

open ScopeEngine

def main (arguments : List String) : IO UInt32 := do
  let contents ← match CommandLine.configPath? arguments with
    | some path => CommandLine.readContents path
    | none => pure (.error .notFound)
  let now ← IO.monoMsNow
  let outcome := CommandLine.run arguments (fun _ => contents) (.ofMillis now)
  for line in outcome.output do
    IO.println line
  for line in outcome.complaints do
    IO.eprintln line
  return UInt32.ofNat outcome.exitCode
