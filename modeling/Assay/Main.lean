import Assay.Json.Reader
import Assay.Scan

/-!
# The command

Reads the description of a system from the standard input, carries out on it what the arguments ask
for, and prints the report.
-/

open Assay

/-- The rest of a stream. -/
partial def readRest (stream : IO.FS.Stream) (before : String) : IO String := do
  let line ← stream.getLine
  if line.isEmpty then return before else readRest stream (before ++ line)

/-- The command with its arguments. -/
def main (arguments : List String) : IO UInt32 := do
  let description ← readRest (← IO.getStdin) ""
  match Json.readDeep? 1000 description.toList with
  | .error fault =>
    IO.eprintln fault.cause.text
    return Ending.inputFault.toUInt32
  | .ok system =>
    let ending := runCommandLine Sandbox.onSystem arguments 4 (Sandbox.System.ofDatum system)
    if let some text := ending.printed then IO.print text
    if let some text := ending.complaint then IO.eprintln text
    return ending.exitCode.toUInt32
