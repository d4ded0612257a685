import SqlWorkflow.Compile.Listing
import SqlWorkflow.Compile.ScriptFile
import SqlWorkflow.Compile.SqlFile
import SqlWorkflow.Project.Files

/-!
# Sources

Where a file lies and what it is called decides how it takes part in a
compilation. Only the files among the definitions define actions; shared scripts
lie among the includes, and all others are read only if an action listing refers
to them.
-/

namespace SqlWorkflow.Compile

inductive SourceKind
  | sqlTemplate
  | script
  | listing
  | referenced
  deriving DecidableEq

def definitionsDirectory : List Char := "definitions/".toList

def includesDirectory : List Char := "includes/".toList

/-- How a file at a path takes part in a compilation. -/
def SourceKind.of (path : String) : SourceKind :=
  let chars := path.toList
  let name := Sqlx.lastComponent chars
  if !definitionsDirectory.isPrefixOf chars then .referenced
  else if name = "actions.yaml".toList ∨ name = "actions.yml".toList then
    .listing
  else if ".sqlx".toList.isSuffixOf name then .sqlTemplate
  else if ".js".toList.isSuffixOf name then .script
  else .referenced

/-- Whether a path is that of a shared script. -/
def isInclude (path : String) : Bool :=
  includesDirectory.isPrefixOf path.toList &&
    ".js".toList.isSuffixOf path.toList

def includesOf (files : Project.Files) : Dictionary String :=
  files.filter fun file => isInclude file.1

def readFile (context : Context) (file : String × String) : Reading :=
  match SourceKind.of file.1 with
  | .sqlTemplate => readSqlFile context file.1 file.2
  | .script => readScriptFile context file.1 file.2
  | .listing => readListing context file.1 file.2
  | .referenced => .plain (.ok [])

/-- Reads all files of a project, in the order of their paths. -/
def readFiles (context : Context) : Reading :=
  Reading.all (readFile context) context.files

end SqlWorkflow.Compile
