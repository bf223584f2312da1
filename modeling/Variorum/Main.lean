import Variorum.CommandLine

/-!
# The program

Reads the document and the variables, and writes what the run comes to: the output to the standard
output, the notes to the standard error.
-/

namespace Variorum.CommandLine

/-- The variables that override settings, as they are when the program starts. -/
def readEnvironment : IO (List (String × String)) := do
  let found ← Config.variableNames.mapM fun name => do
    return (← IO.getEnv name).map fun s => (name, s)
  return found.filterMap id

def readSource : Source → IO (Option ByteArray)
  | .input => do return some (← (← IO.getStdin).readBinToEnd)
  | .file path => do
    try
      return some (← IO.FS.readBinFile path)
    catch _ => return none

end Variorum.CommandLine

open Variorum

def main (args : List String) : IO UInt32 := do
  let source := CommandLine.source args
  let environment ← CommandLine.readEnvironment
  let completion := CommandLine.complete environment source (← CommandLine.readSource source)
  for note in completion.notes do
    IO.eprintln note
  IO.print completion.output
  return completion.exitCode.toUInt32
