import SqlWorkflow.CommandLine.Reply

/-!
# The program

Reads what the arguments ask for, and prints the reply. The file to parse is
read by its path. To compile, the program reads the paths of the files below the
working directory from its standard input, one a line, as programs that list
files print them, and then those of the files that it can read.
-/

namespace SqlWorkflow

open Project (AccessFault Disk)
open CommandLine (Invocation Reply)

def accessFault : IO.Error → AccessFault
  | .noFileOrDirectory .. => .missing
  | .inappropriateType _ code _ =>
    if code = 21 then .isDirectory else .notDirectory
  | e => .other (toString e)

/-- The text of a file, or why it cannot be read. -/
def readText (path : String) : IO (Except AccessFault String) :=
  (IO.FS.readFile path).toBaseIO.map fun result => result.mapError accessFault

/-- The files of a list of paths, those that can be read. -/
def readDisk (paths : List String) : IO Disk := do
  let files ← paths.filterMapM fun path => do
    return (← readText path).toOption.map (path, ·)
  return .ofList files

def inputLines : IO (List String) := do
  return Text.split '\n' (← (← IO.getStdin).readToEnd)

def answer (invocation : Invocation) : IO Reply :=
  match invocation.command with
  | .parse file =>
    return CommandLine.parseReply invocation.json file (← readText file)
  | .compile .. =>
    return CommandLine.perform (← readDisk (← inputLines)) invocation

end SqlWorkflow

open SqlWorkflow in
def main (arguments : List String) : IO UInt32 := do
  let reply ← match CommandLine.read arguments with
    | .error stop => pure (CommandLine.Reply.ofStop stop)
    | .ok invocation => answer invocation
  IO.print reply.output
  IO.eprint reply.error
  return reply.code.toUInt32
