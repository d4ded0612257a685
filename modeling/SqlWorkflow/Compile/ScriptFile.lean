import SqlWorkflow.Action.ConfigType
import SqlWorkflow.Action.Normalize
import SqlWorkflow.Compile.Definition
import SqlWorkflow.Sqlx.Statement

/-!
# Definition scripts

A definition script is run as a whole. Its value is a list of entries, each of
which defines an action.
-/

namespace SqlWorkflow.Compile

open Json (Decoder RecordSchema)
open Json.Decode (any string option list variant)
open Registry (Templates)

inductive Verb
  | publish
  | operate
  | assert
  | declare
  deriving DecidableEq

/-- The words for the ways, with the ways. -/
def Verb.variants : List (String × Verb) :=
  [("publish", .publish), ("operate", .operate), ("assert", .assert),
    ("declare", .declare)]

structure ScriptEntry where
  verb : Option Verb
  name : Option String
  config : Option Json
  query : Option String
  incrementalQuery : Option String
  preOps : List String
  postOps : List String
  queries : Option (List String)

namespace ScriptEntry

def empty : ScriptEntry := ⟨none, none, none, none, none, [], [], none⟩

def set (field : String) (value : Json)
    (entry : ScriptEntry) : Except Json.Mismatch ScriptEntry :=
  match field with
  | "action" =>
    (variant Verb.variants value).map fun x => { entry with verb := some x }
  | "name" => (option string value).map fun x => { entry with name := x }
  | "config" => (option any value).map fun x => { entry with config := x }
  | "query" => (option string value).map fun x => { entry with query := x }
  | "incrementalQuery" =>
    (option string value).map fun x => { entry with incrementalQuery := x }
  | "preOps" => (list string value).map fun x => { entry with preOps := x }
  | "postOps" => (list string value).map fun x => { entry with postOps := x }
  | "queries" =>
    (option (list string) value).map fun x => { entry with queries := x }
  | _ => .ok entry

def layout : RecordSchema ScriptEntry where
  name := "BuilderEntry"
  fields := ["action", "name", "config", "query", "incrementalQuery", "preOps",
    "postOps", "queries"]
  aliases := []
  strict := true
  empty := empty
  set := set

/-- Reads an entry, with the way in which it defines its action. -/
def decode : Decoder (Verb × ScriptEntry) := fun value =>
  match layout.decode value with
  | .error e => .error e
  | .ok entry =>
    match entry.verb with
    | some verb => .ok (verb, entry)
    | none =>
      match value with
      | .array _ =>
        .error (.invalidLength 0 "struct BuilderEntry with 8 elements")
      | _ => .error (.missingField "action")

/-- The config of an entry; the name beside it counts if the config has none. -/
def configMembers? (entry : ScriptEntry) : Option Json.Members :=
  match entry.config.getD (.object []) with
  | .object members =>
    match entry.name with
    | some name =>
      if (Json.Members.get? members "name").isSome then some members
      else some (Json.Members.insert "name" (.string name) members)
    | none => some members
  | _ => none

/-- The kind of action that an entry defines. -/
def kind (path : String) (index : Nat) (verb : Verb) (value : Json) :
    Except CompileError Action.Kind :=
  match verb with
  | .publish =>
    match Action.Kind.ofConfig value with
    | .error fault => .error (.invalidActionConfig path fault)
    | .ok kind =>
      if kind.isTableLike then .ok kind
      else .error (.invalidScriptResult path (.notPublishable index kind))
  | .operate => .ok .operation
  | .assert => .ok .assertion
  | .declare => .ok .declaration

def templates (entry : ScriptEntry) : Verb → Templates
  | .publish =>
    .table (entry.query.getD "") entry.incrementalQuery entry.preOps
      entry.postOps
  | .operate =>
    .operation
      (entry.queries.getD ((entry.query.map Sqlx.splitStatements).getD []))
  | .assert => .assertion (entry.query.getD "")
  | .declare => .none

/-- What an entry yields; `index` is its place in the list. -/
def read (path : String) (index : Nat) (verb : Verb) (entry : ScriptEntry) :
    Except CompileError Finding :=
  match entry.configMembers? with
  | none => .error (.invalidScriptResult path (.configNotObject index))
  | some members =>
    match kind path index verb (.object members) with
    | .error e => .error e
    | .ok kind =>
      match Action.normalize (.object members) kind .script path with
      | .error e => .error e
      | .ok config =>
        match config.name with
        | none | some "" => .error (.invalidScriptResult path (.unnamed index))
        | some name =>
          if verb = .declare ∧ (entry.query.isSome ∨ entry.queries.isSome) then
            .error (.declarationWithBody path name)
          else
            .ok (.definition
              { fileName := path
                config := config
                defaultName := name
                content := .sql (entry.templates verb) true none })

end ScriptEntry

/-- What the entries of a script yield, numbered from `index` on. -/
def readEntries (path : String) (index : Nat) :
    List (Verb × ScriptEntry) → Except CompileError (List Finding)
  | [] => .ok []
  | (verb, entry) :: rest =>
    match entry.read path index verb with
    | .error e => .error e
    | .ok finding => (readEntries path (index + 1) rest).map (finding :: ·)

def definitionRequest (context : Context)
    (path text : String) : Script.Request where
  script := text
  fileName := path
  purpose := .definitionFile
  config := context.config
  includes := context.includes
  selfTarget := none
  incremental := false
  preamble := none

def readScriptValue (path : String)
    (value : Json) : Except CompileError (List Finding) :=
  match list ScriptEntry.decode value with
  | .error e => .error (.invalidScriptResult path (.malformed e))
  | .ok entries => readEntries path 0 entries

def readScriptFile (context : Context) (path text : String) : Reading :=
  let request := definitionRequest context path text
  match context.evaluator request with
  | .error message => ⟨.ok [.ofFile path message], [request]⟩
  | .ok value => ⟨readScriptValue path value, [request]⟩

end SqlWorkflow.Compile
