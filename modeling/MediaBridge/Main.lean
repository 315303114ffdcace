import MediaBridge.Demo.Run

/-! # The command line

Reads the arguments and the settings document, runs the demonstration, and prints what came of it.
The exit code is 2 for wrong arguments and 1 for a demonstration that failed.
-/

open MediaBridge Demo

/-- The bytes of a file, if it can be read. -/
def readDocument (path : String) : IO (Option ByteArray) := do
  try
    return some (← IO.FS.readBinFile path)
  catch _ => return none

def main (arguments : List String) : IO UInt32 := do
  match Command.parse arguments with
  | .error fault =>
    IO.eprintln ("error: " ++ fault.message)
    IO.eprintln usageLine
    return 2
  | .ok .help =>
    IO.println help
    return 0
  | .ok .version =>
    IO.println About.versionLine
    return 0
  | .ok (.run a) =>
    let document ← match a.config with
      | none => pure none
      | some path => readDocument path
    match perform a document with
    | .error failure =>
      IO.eprintln ("Error: " ++ failure.message)
      if let some cause := failure.cause? then
        IO.eprintln ("\nCaused by:\n    " ++ cause.message)
      return 1
    | .ok summary =>
      summary.capsLine?.forM IO.println
      IO.println summary.countsLine
      IO.println summary.health.summary
      return 0
