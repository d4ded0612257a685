import SqlWorkflow.Action.Kind
import SqlWorkflow.Documentation
import SqlWorkflow.Json.Mismatch

/-!
# Faults of action configs

What may be wrong with the config of an action, or with a listing of actions.
Every fault is fatal.
-/

namespace SqlWorkflow.Action

inductive Fault
  | notAnObject (kind : Kind) (typeName : String)
  /-- A key that the kind does not have, and the key that was perhaps meant. -/
  | unexpectedKey (kind : Kind) (key typeName : String)
      (suggestion : Option String)
  /-- A key whose value does not have the expected form. -/
  | wrongValue (kind : Kind) (key typeName : String) (mismatch : Json.Mismatch)
  /-- Keys that do not go together, such as two names of one field. -/
  | mismatch (kind : Kind) (mismatch : Json.Mismatch)
  | unnamedDeclaration (kind : Kind)
  | emptyName (kind : Kind)
  | materializedTable (kind : Kind)
  | incrementalOption (kind : Kind) (option : String)
  | emptyUniqueKey
  | optionTwice (option typed : String)
  | optionOfView (typed : String)
  | optionUnpartitioned (typed : String)
  | missingFileName (kind : Kind)
  | bothUniqueKeys
  | emptyUniqueKeyGroup
  /-- A config block names no kind of action. -/
  | unknownType (name : String)
  /-- The type in a config block is not a string. -/
  | typeNotString (value : Json)
  /-- A listing is not readable. -/
  | invalidListing
  | listingNotMapping
  | actionsNotList
  | entryNotMapping
  | entryKeys
  /-- A key in a listing that has no meaning, and the key that was perhaps
  meant. -/
  | unknownListingKey (key : String) (suggestion : Option String)

namespace Fault

def seeKind (kind : Kind) : String :=
  "See " ++ Documentation.configsUrl kind.name

/-- The words for a key that is not as expected. -/
def unexpectedProperty (kind : Kind) (key typeName : String) : String :=
  "Unexpected property \"" ++ key ++ "\", or property value type of \"" ++
    typeName ++ "\" is incorrect. " ++ seeKind kind ++
    " for allowed properties."

def message : Fault → String
  | .notAnObject kind typeName =>
    "The " ++ kind.name ++ " config must be an object, found " ++ typeName ++
      ". " ++ seeKind kind
  | .unexpectedKey kind key typeName suggestion =>
    unexpectedProperty kind key typeName ++
      suggestion.elim "" fun s => " Did you mean \"" ++ s ++ "\"?"
  | .wrongValue kind key typeName m =>
    unexpectedProperty kind key typeName ++ " (" ++ m.message ++ ")"
  | .mismatch kind m =>
    "Invalid " ++ kind.name ++ " config: " ++ m.message ++ ". " ++ seeKind kind
  | .unnamedDeclaration kind =>
    "declarations require a non-empty \"name\". " ++ seeKind kind
  | .emptyName kind =>
    "The " ++ kind.name ++ " \"name\" must not be empty. " ++ seeKind kind
  | .materializedTable kind =>
    "The \"materialized\" option is only valid for views, not for " ++
      kind.name ++ " actions"
  | .incrementalOption kind option =>
    "The \"" ++ option ++
      "\" option is only valid for incremental tables, not for " ++ kind.name ++
      " actions"
  | .emptyUniqueKey => "\"uniqueKey\" must list at least one column"
  | .optionTwice option typed =>
    "\"" ++ option ++ "\" has been declared twice: as bigquery." ++ typed ++
      " and in bigquery.additionalOptions"
  | .optionOfView typed =>
    "\"" ++ typed ++ "\" is not valid for views that are not materialized; " ++
      "use bigquery.additionalOptions instead"
  | .optionUnpartitioned typed =>
    "\"" ++ typed ++
      "\" requires the table to be partitioned with bigquery.partitionBy"
  | .missingFileName kind =>
    "\"filename\" is required for " ++ kind.name ++ " actions. " ++ seeKind kind
  | .bothUniqueKeys =>
    "Specify at most one of \"assertions.uniqueKey\" and \"assertions.uniqueKeys\""
  | .emptyUniqueKeyGroup =>
    "Unique key assertions must list at least one column per key"
  | .unknownType name =>
    "Unknown action type \"" ++ name ++
      "\". Expected one of table, view, incremental, operations, " ++
      "assertion, declaration. See " ++ Documentation.configsUrl "type"
  | .typeNotString value =>
    "The \"type\" property must be a string, found " ++ value.compact ++
      ". See " ++ Documentation.configsUrl "type"
  | .invalidListing => "invalid YAML"
  | .listingNotMapping => "expected a mapping with an \"actions\" list"
  | .actionsNotList => "\"actions\" must be a list"
  | .entryNotMapping => "each action must be a mapping with one kind key"
  | .entryKeys => "each action must have exactly one kind key"
  | .unknownListingKey key suggestion =>
    "Unexpected property \"" ++ key ++ "\"" ++
      suggestion.elim "" (fun s => ". Did you mean \"" ++ s ++ "\"?") ++
      " See " ++ Documentation.configsUrl "actions"

end Fault

end SqlWorkflow.Action
