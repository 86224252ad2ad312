import TileWorld.CommandLine.Arguments
import TileWorld.SettingsFile

/-!
# The program

Runs the command line on the files of the disk.
-/

namespace TileWorld.CommandLine

def diskFault : IO.Error → FileFault
  | .noFileOrDirectory .. => .missing
  | .inappropriateType _ code _ => if code = 20 then .notDirectory else .directory
  | .invalidArgument _ 36 _ => .nameTooLong
  | e => .other (toString e)

def disk : Files IO where
  read path := do
    try
      return .ok (← IO.FS.readFile path)
    catch e => return .error (diskFault e)
  write path content := do
    try
      IO.FS.writeFile path content
      return .ok ()
    catch e => return .error (diskFault e)

def usageText : String :=
  "usage: -i GRID_FILE [-o PRISM_FILE] [-a AGENTS] [-v AGENTS] [-p AGENTS] " ++
    "[-q PROBABILITIES] [-f] [-m mdp|smg] [-c CONFIG_FILE] [-h] [-V]\n"

def versionText : String := "gridprism 0.1.0\n"

end TileWorld.CommandLine

open TileWorld TileWorld.CommandLine in
def main (args : List String) : IO UInt32 := do
  match request args with
  | .error .help =>
    (← IO.getStdout).putStr usageText
    return 0
  | .error .version =>
    (← IO.getStdout).putStr versionText
    return 0
  | .error .usage =>
    (← IO.getStderr).putStr usageText
    return 2
  | .ok r =>
    let outcome ← run Settings.ofFile? disk r
    if let .failed f := outcome then
      (← IO.getStderr).putStr f.report
    (← IO.getStdout).putStr outcome.output
    return outcome.exitCode.toUInt32
