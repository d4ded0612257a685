import SqlWorkflow.Action.ConfigType
import SqlWorkflow.Action.Normalize
import SqlWorkflow.Compile.Definition
import SqlWorkflow.Expr.Parser
import SqlWorkflow.Sqlx.File
import SqlWorkflow.Sqlx.FileName
import SqlWorkflow.Sqlx.Statement

/-!
# SQL-template files

A SQL-template file defines one action. Its config block is read as a literal if
it is one, and given to the script runtime otherwise.
-/

namespace SqlWorkflow.Compile

open Registry (Templates)
open Sqlx (Blocks)

/-- The request for a config block that is not a literal. -/
def configRequest (context : Context) (path content : String)
    (blocks : Blocks) : Script.Request where
  script := "(\x7b" ++ content ++ "\x7d)"
  fileName := path
  purpose := .configBlock
  config := context.config
  includes := context.includes
  selfTarget := none
  incremental := false
  preamble := blocks.script

/-- The value of a config block that is a literal. -/
def literalConfig? (content : String) : Option Json :=
  (Expr.parseObjectBody content).toOption.bind Expr.toJson?

/-- The message about operations around an action that cannot have them. -/
def operationBlocksMessage : String :=
  "pre_operations and post_operations are only allowed for tables, views and incremental tables"

/-- Whether a file has operations before or after its body. -/
def hasOperationBlocks (blocks : Blocks) : Bool :=
  !blocks.preOperations.isEmpty || !blocks.postOperations.isEmpty

/-- The SQL of a file, by the kind of its action. -/
def templatesOf (kind : Action.Kind) (blocks : Blocks) : Templates :=
  match kind with
  | .table | .view | .incremental =>
    .table blocks.body none blocks.preOperations blocks.postOperations
  | .operation => .operation (Sqlx.splitStatements blocks.body)
  | .declaration => .none
  | _ => .assertion blocks.body

/-- The diagnostics about the blocks of a file, by the kind of its action. -/
def blockFindings (path : String) (kind : Action.Kind)
    (blocks : Blocks) : List Finding :=
  if !kind.isTableLike && kind != .declaration && hasOperationBlocks blocks then
    [.ofFile path operationBlocksMessage]
  else []

def readConfigured (path : String) (blocks : Blocks) (value : Json) :
    Except CompileError (List Finding) :=
  match Action.Kind.ofConfig value with
  | .error fault => .error (.invalidActionConfig path fault)
  | .ok kind =>
    match Action.normalize value kind .block path with
    | .error e => .error e
    | .ok config =>
      if kind = .declaration ∧
          (!Text.isBlankText blocks.body ∨ hasOperationBlocks blocks) then
        .error (.declarationWithBody path
          (config.name.getD (Sqlx.actionName path)))
      else
        .ok (blockFindings path kind blocks ++
          [.definition
            { fileName := path
              config := config
              defaultName := Sqlx.actionName path
              content := .sql (templatesOf kind blocks) true blocks.script }])

def readBlocks (context : Context) (path : String)
    (blocks : Blocks) : Reading :=
  match blocks.config with
  | none => .plain (readConfigured path blocks (.object []))
  | some content =>
    match literalConfig? content with
    | some value => .plain (readConfigured path blocks value)
    | none =>
      let request := configRequest context path content blocks
      match context.evaluator request with
      | .ok value => ⟨readConfigured path blocks value, [request]⟩
      | .error message =>
        ⟨.ok [.ofFile path ("Error evaluating config block: " ++ message)],
          [request]⟩

def readSqlFile (context : Context) (path text : String) : Reading :=
  match Sqlx.extractBlocks text with
  | .error e => .plain (.ok [.ofFile path e.message])
  | .ok blocks => readBlocks context path blocks

end SqlWorkflow.Compile
