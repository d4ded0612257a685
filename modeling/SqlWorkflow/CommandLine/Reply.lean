import SqlWorkflow.CommandLine.Arguments
import SqlWorkflow.Compile.Basic
import SqlWorkflow.Project.Disk
import SqlWorkflow.Sqlx.Json

/-!
# Replies

What the program answers: a text on the standard output, a text on the standard
error output, and an exit code. The code is two for wrong arguments, and one for
a failure or a graph with errors.
-/

namespace SqlWorkflow.CommandLine

structure Reply where
  code : UInt8
  output : String
  error : String
  deriving DecidableEq

namespace Reply

def success (output : String) : Reply := ⟨0, output, ""⟩

/-- A text with four blanks before every line. -/
def indent (text : String) : String :=
  "\n".intercalate ((Text.split '\n' text).map ("    " ++ ·))

/-- A failure: what was attempted, and why it failed. -/
def failure (attempt cause : String) : Reply :=
  ⟨1, "", "Error: " ++ attempt ++ "\n\nCaused by:\n" ++ indent cause ++ "\n"⟩

def usage : String :=
  "Compiler for SQL workflow projects\n\n" ++
  "Usage: dataform-compiler [--json] [-v] compile [OPTIONS] [DIR]\n" ++
  "       dataform-compiler [--json] [-v] parse FILE\n\n" ++
  "Options of compile:\n" ++
  "  --vars KEY=VALUE,...         project variables\n" ++
  "  --default-database VALUE     replaces the default database\n" ++
  "  --default-schema VALUE       replaces the default schema\n" ++
  "  --default-location VALUE     replaces the default location\n" ++
  "  --database-suffix VALUE      is appended to the default database\n" ++
  "  --schema-suffix VALUE        is appended to the default schema\n" ++
  "  --table-prefix VALUE         is put before the names of actions except declarations\n"

/-- The answer to arguments that ask for nothing to be done. -/
def ofStop : Stop → Reply
  | .fault fault => ⟨2, "", "error: " ++ fault.message ++ "\n\n" ++ usage⟩
  | .help => success usage
  | .version => success ("dataform-compiler " ++ Compile.version ++ "\n")

end Reply

/-! ## Compiling -/

/-- A label of a summary, eighteen characters wide. -/
def padded (label : String) : String :=
  label ++ String.ofList (List.replicate (18 - label.length) ' ')

/-- The line of a summary for the actions of a variant, if there are any. -/
def countLine (label : String) (count : Nat) : String :=
  if count = 0 then ""
  else "  " ++ padded label ++ " " ++ toString count ++ "\n"

/-- The end of a summary: the diagnostics, if there are any. -/
def diagnosticLines (diagnostics : List Diagnostic) : String :=
  if diagnostics.isEmpty then ""
  else
    "\n" ++ toString diagnostics.length ++ " compilation error(s):\n" ++
      String.join (diagnostics.map fun d => "  ✗ " ++ d.text ++ "\n")

/-- The labels of the variants of actions, in the order of a summary. -/
def variantLabels : List (Action.Variant × String) :=
  [(.table, "tables"), (.operation, "operations"), (.assertion, "assertions"),
    (.declaration, "declarations"), (.notebook, "notebooks"),
    (.dataPreparation, "data preparations")]

def summary (graph : Graph) : String :=
  "Compiled " ++ toString graph.size ++ " action(s)\n" ++
    String.join (variantLabels.map fun entry => countLine entry.2
      (graph.ofVariant entry.1).length) ++ diagnosticLines graph.diagnostics

def graphReply (json : Bool) (graph : Graph) : Reply :=
  ⟨if graph.diagnostics.isEmpty then 0 else 1,
    if json then graph.toJson.indented ++ "\n" else summary graph, ""⟩

/-- The answer to a request to compile the project in a directory, whose files
have been loaded or not. -/
def compileReply (json : Bool) (directory : String)
    (override : Settings.Override) : Except CompileError Project.Files → Reply
  | .error e => .failure ("failed to load project at " ++ directory) e.message
  | .ok files =>
    match (compile files Script.noRuntime ⟨override, Compile.version⟩).result
      with
    | .error e =>
      .failure ("compilation of " ++ directory ++ " failed") e.message
    | .ok graph => graphReply json graph

/-! ## Showing the blocks of a file -/

def titled (title content : String) : String :=
  title ++ ":\n" ++ Text.trim content ++ "\n"

/-- The blocks of a list, each with its place. -/
def numbered (title : String) (contents : List String) : String :=
  String.join (contents.zipIdx.map fun (content, place) =>
    titled (title ++ "[" ++ toString place ++ "]") content ++ "\n")

def blocksText (blocks : Sqlx.Blocks) : String :=
  blocks.config.elim "" (titled "config" · ++ "\n") ++
    blocks.script.elim "" (titled "js" · ++ "\n") ++
    numbered "pre_operations" blocks.preOperations ++
    numbered "post_operations" blocks.postOperations ++
    titled "body" blocks.body

/-- The answer to a request to show the blocks of a file, which has been read or
not. -/
def parseReply (json : Bool)
    (file : String) : Except Project.AccessFault String → Reply
  | .error fault => .failure ("failed to read " ++ file) fault.message
  | .ok text =>
    match Sqlx.extractBlocks text with
    | .error e => .failure ("failed to parse " ++ file) e.message
    | .ok blocks =>
      .success
        (if json then blocks.toJson.indented ++ "\n" else blocksText blocks)

/-! ## The program -/

def perform (disk : Project.Disk) (invocation : Invocation) : Reply :=
  match invocation.command with
  | .compile directory override =>
    compileReply invocation.json directory override (disk.load directory)
  | .parse file => parseReply invocation.json file (disk.read file)

def run (disk : Project.Disk) (arguments : List String) : Reply :=
  match read arguments with
  | .error stop => .ofStop stop
  | .ok invocation => perform disk invocation

end SqlWorkflow.CommandLine
