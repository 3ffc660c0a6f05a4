import CodeAudit.Bundle
import CodeAudit.CommandLine.Run

/-!
# The program

Arguments come from the command line and the project from standard input, as a bundle.  The rest
is `CommandLine.run`.
-/

namespace CodeAudit

/-- Reads a stream to its end. -/
partial def readAll (input : IO.FS.Stream) (found : String) : IO String := do
  let line ← input.getLine
  if line.isEmpty then return found else readAll input (found ++ line)

/-- Whether the environment asks for colours. -/
def wantsColors : IO Bool := do
  return match ← IO.getEnv "CLICOLOR_FORCE" with
    | some value => value != "0"
    | none => false

end CodeAudit

open CodeAudit in
def main (args : List String) : IO UInt32 := do
  match Bundle.read? (← readAll (← IO.getStdin) "") with
  | none =>
    IO.eprintln "Error: standard input is no bundle"
    return 2
  | some bundle =>
    let world : CommandLine.World :=
      { disk := bundle.disk, parser := bundle.parser, colors := ← wantsColors, now := ← IO.monoNanosNow }
    let outcome := CommandLine.run world args
    IO.print outcome.output
    for complaint in outcome.complaints do
      IO.eprintln complaint
    return outcome.exit.toUInt32
