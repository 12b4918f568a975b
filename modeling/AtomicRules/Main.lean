import AtomicRules.CommandLine

/-!
# The program

Reads the arguments, runs the design and hands its output to the system: the
final values to standard output, the trace to its file, failures to standard
error.
-/

namespace AtomicRules.CommandLine

/-- The help text. -/
def usage : String :=
  "Run a built-in rule-based design, printing its final state or tracing it to VCD\n\n" ++
  "Usage: rulesim [OPTIONS] <DESIGN> [CYCLES] [VCD] [PERIOD]\n\n" ++
  "Arguments:\n" ++
  "  <DESIGN>  Design to simulate [possible values: toggle, collatz, scatter]\n" ++
  "  [CYCLES]  Number of cycles to run [default: 1000]\n" ++
  "  [VCD]     Write a VCD trace here instead of printing the final state\n" ++
  "  [PERIOD]  Cycles between trace samples [default: 1]\n\n" ++
  "Options:\n" ++
  "      --timescale <TIMESCALE>  Duration of one cycle in the trace header [default: 1 ps]\n" ++
  "  -h, --help                   Print help\n" ++
  "  -V, --version                Print version\n"

/-- The device error that a failure of the system stands for. -/
def deviceError : IO.Error → DeviceError
  | .noFileOrDirectory .. => .notFound
  | .inappropriateType .. => .isADirectory
  | _ => .other

/-- Creates or empties a file, and says why when it cannot. -/
def createFile (path : String) : IO (Option DeviceError) := do
  try
    let _ ← IO.FS.Handle.mk path .write
    return none
  catch error => return some (deviceError error)

/-- Tells what went wrong, with the device error behind it. -/
def report : Halt → IO Unit
  | .failed error => do
      IO.eprintln ("error: " ++ error.message)
      if let some cause := error.cause? then IO.eprintln ("  caused by: " ++ cause.name)
  | .violated violation => IO.eprintln ("error: " ++ violation.message)

/-- Runs what the arguments describe. -/
def perform (invocation : Invocation) : IO UInt32 := do
  let refusal ← match invocation.config.trace with
    | some trace => createFile trace.path
    | none => pure none
  let session := invocation.design.execute invocation.config Writer.unbounded { refusal }
  if let (some trace, some content) := (invocation.config.trace, session.destination.content) then
    IO.FS.writeBinFile trace.path content
  let output ← IO.getStdout
  output.write session.out.written
  output.flush
  match session.outcome with
  | .ok () => return 0
  | .error halt =>
      report halt
      return 1

end AtomicRules.CommandLine

open AtomicRules in
/-- Runs the command line. -/
def main (arguments : List String) : IO UInt32 := do
  match CommandLine.parse arguments with
  | .ok invocation => CommandLine.perform invocation
  | .error error =>
      match error with
      | .displayHelp => IO.print CommandLine.usage
      | .displayVersion => IO.println producer
      | _ => IO.eprintln ("error: " ++ error.name ++ "\n\n" ++ CommandLine.usage)
      return UInt32.ofNat error.exitCode
