import SqlWorkflow.Action.Normalize
import SqlWorkflow.Compile.Definition
import SqlWorkflow.Compile.Notebook
import SqlWorkflow.Project.Path
import SqlWorkflow.Sqlx.FileName
import SqlWorkflow.Sqlx.Statement
import SqlWorkflow.Text.Blank
import SqlWorkflow.Text.EditDistance
import SqlWorkflow.Yaml.Resolution

/-!
# Action listings

An action listing is a YAML document with a list of entries. An entry names a
kind of action and configures it; all kinds but declarations are compiled from a
file that the entry refers to, and belong to that file.
-/

namespace SqlWorkflow.Compile

open Registry (Templates)

def entryKinds : List String := Action.Kind.all.map Action.Kind.name

def refuse {α : Type} (path : String)
    (fault : Action.Fault) : Except CompileError α :=
  .error (.invalidActionConfig path fault)

/-- Refuses a key that has no meaning, with the key that was perhaps meant. -/
def refuseKey {α : Type} (path key : String)
    (known : List String) : Except CompileError α :=
  refuse path (.unknownListingKey key (Text.suggestion? key known))

/-- The entries of a listing that is an object. -/
def entriesOfMembers (path : String)
    (members : Json.Members) : Except CompileError (List Json) :=
  match members.find? (·.1 ≠ "actions") with
  | some (key, _) => refuseKey path key ["actions"]
  | none =>
    match Json.Members.get? members "actions" with
    | none | some .null => .ok []
    | some (.array entries) => .ok entries
    | some _ => refuse path .actionsNotList

def listedEntries (path text : String) : Except CompileError (List Json) :=
  let document :=
    if Text.isBlankText text then some .null else Yaml.toJson? text
  match document with
  | none => refuse path .invalidListing
  | some .null => .ok []
  | some (.object members) => entriesOfMembers path members
  | some _ => refuse path .listingNotMapping

def entryConfig (path : String)
    (entry : Json) : Except CompileError (Action.Kind × Json) :=
  match entry with
  | .object [(key, value)] =>
    match Action.Kind.ofListingKey? key with
    | none => refuseKey path key entryKinds
    | some kind => .ok (kind, if value matches .null then .object [] else value)
  | .object _ => refuse path .entryKeys
  | _ => refuse path .entryNotMapping

/-- Whether a path is that of a SQL file. -/
def isSqlPath (path : String) : Bool :=
  ['.', 's', 'q', 'l'].isSuffixOf path.toList

/-- What an action is compiled from, by its kind and the file that its entry
refers to. Diagnostics about the file come before the action. -/
def contentOf (kind : Action.Kind)
    (file contents : String) : List Finding × Content :=
  match kind with
  | .notebook =>
    match notebookText contents with
    | .ok text => ([], .notebook text)
    | .error message =>
      ([.ofFile file ("Invalid notebook JSON: " ++ message)],
        .notebook contents)
  | .dataPreparation =>
    ([],
      .preparation (if isSqlPath file then .sql contents else .yaml contents))
  | .operation =>
    ([], .sql (.operation (Sqlx.splitStatements contents)) false none)
  | .assertion => ([], .sql (.assertion contents) false none)
  | _ => ([], .sql (.table contents none [] []) false none)

def readConfig (context : Context) (path : String) (kind : Action.Kind)
    (config : Action.Config) : Except CompileError (List Finding) :=
  if kind = .declaration then
    .ok [.definition ⟨path, config, config.name.getD "", .nothing⟩]
  else
    match config.filename with
    | none => refuse path (.missingFileName kind)
    | some name =>
      let file := Project.resolveRelative path name
      match Dictionary.get? context.files file with
      | none => .error (.fileNotFound file path)
      | some contents =>
        let (findings, content) := contentOf kind file contents
        .ok (findings ++
          [.definition ⟨file, config, Sqlx.actionName file, content⟩])

def readEntry (context : Context) (path : String) (entry : Json) :
    Except CompileError (List Finding) :=
  match entryConfig path entry with
  | .error e => .error e
  | .ok (kind, value) =>
    match Action.normalize value kind .listing path with
    | .error e => .error e
    | .ok config => readConfig context path kind config

def listedFindings (context : Context)
    (path text : String) : Except CompileError (List Finding) :=
  match listedEntries path text with
  | .error e => .error e
  | .ok [] => .error (.emptyActionConfigs path)
  | .ok entries => collect (readEntry context path) entries

def readListing (context : Context) (path text : String) : Reading :=
  .plain (listedFindings context path text)

end SqlWorkflow.Compile
