import LineShell.CommandLine

/-!
The program: reads the arguments and the script, and prints the report of the run.
-/

namespace LineShell.CommandLine

def readScript (path : String) : IO (Except ReadFailure ByteArray) := do
  try
    return .ok (← IO.FS.readBinFile path)
  catch
    | .noFileOrDirectory .. => return .error .notFound
    | .inappropriateType .. => return .error .isDirectory
    | e => return .error (.other (toString e))

/-- Diagnostics are left out, also where they are asked for. -/
def execute (options : Options) : IO Report := do
  if options.file then
    return runScript options.quiet silent options.contents (← readScript options.contents)
  else
    return runExpression options.quiet silent options.contents

def start (arguments : List String) : IO UInt32 := do
  match Options.parse {} false arguments with
  | none =>
    IO.eprintln "Usage: [--file] [--verbose] [--quiet] [CONTENTS]"
    return 2
  | some options =>
    let report ← execute options
    IO.print report.standardOutput
    IO.eprint report.standardError
    return report.exitCode

end LineShell.CommandLine

def main (arguments : List String) : IO UInt32 := LineShell.CommandLine.start arguments
